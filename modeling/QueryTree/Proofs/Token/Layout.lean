import Mathlib.Data.List.Forall2
import QueryTree.Proofs.Token.Spacing

/-! # Layout

The blanks between the lexemes of a text and the case of its reserved words carry no meaning. A text
with other blanks has the same tokens and is parsed in the same way.
-/

namespace QueryTree

open Text Lexed

/-- The pieces, each before its own blanks, after the blanks in front. -/
def layout (front : String) (pieces : List (String × String)) : String :=
  String.ofList (front.toList ++ pieces.flatMap fun (s, blanks) => s.toList ++ blanks.toList)

/-- The words with a meaning of their own, which may be written in any case. -/
def Token.isReserved : Token → Bool
  | keyword _ | boolean _ | null => true
  | _ => false

theorem Token.isWord_of_isReserved {t : Token} (h : t.isReserved) : t.isWord := by
  cases t <;> simp_all [isReserved, isWord]

/-- The spelling of a lexeme, or of a reserved word in another case. -/
def Lexeme.SpelledAs (l : Lexeme) (s : String) : Prop :=
  s = l.text ∨ l.token.isReserved ∧ Grammar.sameWord s l.text

def ParseError.withQuery (query : String) : ParseError → ParseError
  | .emptyQuery => .emptyQuery
  | .inQuery f _ => .inQuery f query

variable {cs : List Char} {ls : List Lexeme} {t : Token} {s s' text : String}

section Alone

/-- Each lexeme of a text is a text of its own. -/
theorem Lexes.alone {l : Lexeme} (h : Lexes cs ls) (mem : l ∈ ls) : Lexes l.text.toList [l] := by
  obtain ⟨rest, skipped, read⟩ := h.exists_read mem
  apply lexes_token _ (ofChars_of_append read)
  obtain ⟨c, cs, split⟩ := List.exists_cons_of_ne_nil (ne_nil_of_ofChars read)
  rw [split, List.dropWhile_eq_self_iff] at skipped ⊢
  exact fun _ => skipped (Nat.zero_lt_succ _)

theorem isWordStart_of_toUpper {c : Char} (h : c.toUpper.isUpper) : isWordStart c := by
  have letters : ∀ n < 123, 65 ≤ n ∧ n ≤ 90 ∨ 97 ≤ n → inRanges letterRanges n := by decide
  have letter {n : Nat} (small : n < 123) (range : 65 ≤ n ∧ n ≤ 90 ∨ 97 ≤ n)
      (same : c.toNat = n) : isWordStart c := by
    simp [isWordStart, isLetter, same, letters n small range]
  unfold Char.toUpper at h
  split at h
  · next lower =>
    have low : 97 ≤ c.toNat := UInt32.le_iff_toNat_le.mp lower.1
    have high : c.toNat ≤ 122 := UInt32.le_iff_toNat_le.mp lower.2
    exact letter (Nat.lt_succ_of_le high) (.inr low) rfl
  · have upper := of_decide_eq_true h
    have low : 65 ≤ c.toNat := UInt32.le_iff_toNat_le.mp upper.1
    have high : c.toNat ≤ 90 := UInt32.le_iff_toNat_le.mp upper.2
    exact letter (by omega) (.inl ⟨low, high⟩) rfl

theorem not_isDigit_of_isWordStart {c : Char} (h : isWordStart c) : ¬ c.isDigit := by
  intro digit
  have others : ∀ n < 58, 48 ≤ n → inRanges letterRanges n = false ∧ n ≠ '_'.toNat := by decide
  obtain ⟨low, high⟩ := Char.isDigit_iff_toNat.mp digit
  obtain ⟨letter, other⟩ := others c.toNat (Nat.lt_succ_of_le high) low
  have other : c ≠ '_' := by
    rintro rfl
    exact other rfl
  simp [isWordStart, isLetter, letter, other] at h

theorem ofChars_word_append {c : Char} {more : List Char} (start : isWordStart c)
    (inside : ∀ d ∈ cs, isWordChar d) (apart : ∀ d ∈ more.head?, ¬ isWordChar d) :
    ofChars (c :: cs ++ more) = (.token (.ofWord (String.ofList (c :: cs))), more) := by
  have marks : ∀ s ∈ Mark.spellings, s.1.all (!isWordStart ·) := by decide
  have unmarked : mark? (c :: (cs ++ more)) = none := by
    apply mark?_eq_none
    intro s hs front
    have other := List.all_eq_true.mp (marks s hs) c (List.mem_of_head? front)
    rw [start] at other
    cases other
  have others : ∀ d ∈ ['\'', '"', ':', '?', '-', '+'], c ≠ d := by
    have none : ['\'', '"', ':', '?', '-', '+'].all (!isWordStart ·) := by decide
    rintro d hd rfl
    have other := List.all_eq_true.mp none c hd
    rw [start] at other
    cases other
  have digit := not_isDigit_of_isWordStart start
  have all : ∀ d ∈ c :: cs, isWordChar d :=
    List.forall_mem_cons.mpr ⟨isWordChar_of_isWordStart start, inside⟩
  have front : (c :: (cs ++ more)).takeWhile isWordChar = c :: cs ++ more.takeWhile isWordChar :=
    List.takeWhile_append_of_pos all
  have behind : (c :: (cs ++ more)).dropWhile isWordChar = more.dropWhile isWordChar :=
    List.dropWhile_append_of_pos all
  have stops : more.takeWhile isWordChar = [] ∧ more.dropWhile isWordChar = more := by
    cases more with
    | nil => exact ⟨rfl, rfl⟩
    | cons d rest =>
      exact ⟨List.takeWhile_cons_of_neg (apart d rfl), List.dropWhile_cons_of_neg (apart d rfl)⟩
  simp only [List.forall_mem_cons] at others
  simp [ofChars, unmarked, others, digit, start, front, behind, stops]

theorem ofChars_of_word {c : Char} (start : isWordStart c) (inside : ∀ d ∈ cs, isWordChar d) :
    ofChars (c :: cs) = (.token (.ofWord (String.ofList (c :: cs))), []) := by
  have read : ofChars (c :: cs ++ []) = _ := ofChars_word_append start inside (by simp)
  rwa [List.append_nil] at read

/-- A reserved word is one in any case. -/
theorem lexes_reserved (h : Token.ofReserved? s = some t) : Lexes s.toList [⟨t, s⟩] := by
  have capitals : ∀ e ∈ Token.reserved, e.1.toList ≠ [] ∧ e.1.toList.all Char.isUpper := by decide
  obtain ⟨some, upper⟩ := capitals _ (mem_reserved_of_ofReserved? h)
  have letters : ∀ c ∈ s.toList, isWordStart c := by
    intro c hc
    apply isWordStart_of_toUpper
    apply List.all_eq_true.mp upper
    simpa [Token.foldCase] using ⟨c, hc, rfl⟩
  obtain ⟨c, cs, same⟩ : ∃ c cs, s.toList = c :: cs := by
    apply List.exists_cons_of_ne_nil
    rintro empty
    simp [Token.foldCase, empty] at some
  have start : isWordStart c := letters c (same ▸ List.mem_cons_self)
  apply lexes_token
  · rw [same, List.dropWhile_cons_of_neg (not_isBlank_of_isWordStart start)]
  · have inside : ∀ d ∈ cs, isWordChar d := fun d hd =>
      isWordChar_of_isWordStart (letters d (same ▸ List.mem_cons_of_mem c hd))
    rw [same, ofChars_of_word start inside, ← same, String.ofList_toList, Token.ofWord, h]
    rfl

theorem ofReserved?_of_isReserved (h : Token.ofWord s = t) (reserved : t.isReserved) :
    Token.ofReserved? s = some t := by
  unfold Token.ofWord at h
  cases found : Token.ofReserved? s with
  | none =>
    rw [found] at h
    rw [← h] at reserved
    cases reserved
  | some u =>
    rw [found] at h
    exact congrArg some h

theorem Lexes.respelled {l : Lexeme} (h : Lexes cs ls) (mem : l ∈ ls) (spelled : l.SpelledAs s) :
    Lexes s.toList [⟨l.token, s⟩] := by
  rcases spelled with rfl | ⟨reserved, same⟩
  · exact h.alone mem
  · apply lexes_reserved
    obtain ⟨t, text⟩ := l
    have word := h.eq_ofWord mem (Token.isWord_of_isReserved reserved)
    have known := ofReserved?_of_isReserved word.symm reserved
    have folded : Token.foldCase s = Token.foldCase text := eq_of_beq same
    rw [Token.ofReserved?, folded]
    exact known

end Alone

section Layout

def respelled (ls : List Lexeme) (pieces : List (String × String)) : List Lexeme :=
  ls.zipWith (fun l p => ⟨l.token, p.1⟩) pieces

variable {front : String} {pieces : List (String × String)}

theorem lexes_pieces (lexed : ls.Forall₂ (fun l p => Lexes p.1.toList [⟨l.token, p.1⟩]) pieces)
    (blank : ∀ p ∈ pieces, allBlank p.2) (apart : ∀ p ∈ pieces.dropLast, p.2 ≠ "") :
    Lexes (pieces.flatMap fun (s, blanks) => s.toList ++ blanks.toList) (respelled ls pieces) := by
  induction lexed with
  | nil => exact .blank rfl
  | @cons l p ls pieces alone _ ih =>
    obtain ⟨s, blanks⟩ := p
    obtain ⟨blank, later⟩ := List.forall_mem_cons.mp blank
    have blank : ∀ c ∈ blanks.toList, isBlank c := List.all_eq_true.mp blank
    cases split : blanks.toList with
    | nil =>
      cases pieces with
      | nil =>
        cases ls with
        | nil => simpa [respelled, split] using alone
        | cons => contradiction
      | cons p pieces =>
        exact absurd (String.toList_eq_nil_iff.mp split) (apart _ List.mem_cons_self)
    | cons b more =>
      rw [split, List.forall_mem_cons] at blank
      have apart : ∀ p ∈ pieces.dropLast, p.2 ≠ "" := by
        cases pieces with
        | nil => simp
        | cons => exact fun p hp => apart p (List.mem_cons_of_mem _ hp)
      have joined := alone.append_blank blank.1 ((ih later apart).front blank.2)
      simpa [respelled, split] using joined

theorem lexes_layout (lexed : ls.Forall₂ (fun l p => Lexes p.1.toList [⟨l.token, p.1⟩]) pieces)
    (front_blank : allBlank front) (blank : ∀ p ∈ pieces, allBlank p.2)
    (apart : ∀ p ∈ pieces.dropLast, p.2 ≠ "") :
    Lexes (layout front pieces).toList (respelled ls pieces) := by
  rw [layout, String.toList_ofList]
  exact (lexes_pieces lexed blank apart).front (List.all_eq_true.mp front_blank)

theorem map_token_respelled (same : ls.length = pieces.length) :
    (respelled ls pieces).map Lexeme.token = ls.map Lexeme.token := by
  induction ls generalizing pieces with
  | nil => rfl
  | cons l ls ih =>
    cases pieces with
    | nil => cases same
    | cons p pieces =>
      have rest := ih (Nat.succ.inj same)
      simpa [respelled] using rest

theorem respelled_eq_self (same : pieces.map Prod.fst = ls.map Lexeme.text) :
    respelled ls pieces = ls := by
  induction ls generalizing pieces with
  | nil => rfl
  | cons l ls ih =>
    cases pieces with
    | nil => cases same
    | cons p pieces =>
      obtain ⟨first, others⟩ := List.cons.inj same
      have rest := ih others
      simpa [respelled, first] using rest

end Layout

section Parsing

theorem events_eq_nil_iff : events text = [] ↔ allBlank text := by
  constructor
  · intro h
    have nothing : Lexes text.toList [] := lexes_of_events (c := .ofText text) h
    cases nothing with
    | blank skipped => exact List.all_eq_true.mpr (List.dropWhile_eq_nil_iff.mp skipped)
  · exact events_of_allBlank

theorem Session.parse_withQuery (session : Session) (query : String) (goal : Grammar.Goal) :
    ({ session with query }.parse goal).1 =
      (session.parse goal).1.mapError (ParseError.withQuery query) := by
  obtain ⟨_, fallback, stand⟩ := session
  cases stand with
  | cutOff => rfl
  | reader r =>
    rw [parse_reader, parse_reader]
    cases (Grammar.query goal fallback r).result.1 <;> rfl

theorem parse_of_events_eq {text' : String} (same : events text' = events text)
    (fallback : Option String) :
    parse text' fallback = (parse text fallback).mapError (ParseError.withQuery text') := by
  have blank : allBlank text' = allBlank text := by
    rw [Bool.eq_iff_iff, ← events_eq_nil_iff, ← events_eq_nil_iff, same]
  unfold parse Session.start
  rw [blank, same]
  split_ifs
  · rfl
  · cases events text with
    | nil => rfl
    | cons e ahead =>
      cases e with
      | lexeme l =>
        exact Session.parse_withQuery ⟨text, fallback, Reader.facing l ahead⟩ text' none
      | error => rfl

end Parsing

/-- Layout does not matter. A text with other blanks between its lexemes and with its reserved words
in another case has the same tokens. If it is spelled in the same way, then it also has the same
statement or the same fault. -/
theorem layout_irrelevant (text : String) (ls : List Lexeme) (front : String)
    (pieces : List (String × String)) (read : lexemes text = .ok ls)
    (spelled : ls.Forall₂ (fun l p => l.SpelledAs p.1) pieces)
    (blank : allBlank front ∧ ∀ p ∈ pieces, allBlank p.2)
    (apart : ∀ p ∈ pieces.dropLast, p.2 ≠ "") :
    tokenize (layout front pieces) = tokenize text ∧
      (pieces.map Prod.fst = ls.map Lexeme.text → ∀ fallback,
        parse (layout front pieces) fallback =
          (parse text fallback).mapError (ParseError.withQuery (layout front pieces))) := by
  have lexed : Lexes text.toList ls := lexemes_eq_ok_iff_lexes.mp read
  have alone : ls.Forall₂ (fun l p => Lexes p.1.toList [⟨l.token, p.1⟩]) pieces := by
    obtain ⟨same, each⟩ := List.forall₂_iff_zip.mp spelled
    apply List.forall₂_iff_zip.mpr ⟨same, _⟩
    intro l p mem
    exact lexed.respelled (List.of_mem_zip mem).1 (each mem)
  have laid := lexemes_eq_ok_iff_lexes.mpr (lexes_layout alone blank.1 blank.2 apart)
  constructor
  · rw [tokenize, tokenize, laid, read]
    exact congrArg Except.ok (map_token_respelled spelled.length_eq)
  · intro same fallback
    apply parse_of_events_eq
    rw [respelled_eq_self same] at laid
    rw [lexemes_eq_ok_iff.mp laid, lexemes_eq_ok_iff.mp read]

theorem layout_irrelevant_person :
    tokenize (layout "\t" [("FROM", " "), ("P", "\n"), ("wHERE", "  "), ("a", " "), ("<=", "\r\n"),
        ("-1.5", "")]) = tokenize "from P where a<=-1.5" ∧
      ∀ fallback, parse (layout "" [("from", " "), ("P", "\n"), ("where", "  "), ("a", " "),
          ("<=", "\t"), ("-1.5", " ")]) fallback =
        (parse "from P where a<=-1.5" fallback).mapError (ParseError.withQuery
          (layout "" [("from", " "), ("P", "\n"), ("where", "  "), ("a", " "), ("<=", "\t"),
            ("-1.5", " ")])) := by
  have read : lexemes "from P where a<=-1.5" = .ok [⟨.keyword .from_, "from"⟩,
      ⟨.identifier "P", "P"⟩, ⟨.keyword .where_, "where"⟩, ⟨.identifier "a", "a"⟩,
      ⟨.mark .lessEqual, "<="⟩,
      ⟨.decimal ⟨true, 15, 1, by decide, by decide, by decide⟩, "-1.5"⟩] := by
    decide +kernel
  constructor
  · exact (layout_irrelevant _ _ "\t" _ read
      (.cons (.inr ⟨rfl, by decide⟩) (.cons (.inl rfl) (.cons (.inr ⟨rfl, by decide⟩)
        (.cons (.inl rfl) (.cons (.inl rfl) (.cons (.inl rfl) .nil))))))
      (by decide) (by decide)).1
  · apply (layout_irrelevant _ _ "" _ read
      (.cons (.inl rfl) (.cons (.inl rfl) (.cons (.inl rfl)
        (.cons (.inl rfl) (.cons (.inl rfl) (.cons (.inl rfl) .nil))))))
      (by decide) (by decide)).2
    rfl

end QueryTree
